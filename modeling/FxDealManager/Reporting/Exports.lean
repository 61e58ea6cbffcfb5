import FxDealManager.Lifecycle.Settlement
import FxDealManager.Reporting.Complaints

/-!
# Reports over reference data that is kept

A report complains about what valid deals lack. Where the reference data is complete and only ever
extended, no run leads to a complaint: whatever was checked when a deal was validated is still there
when it is reported. What remains is a deal that was not validated and names a currency that is not
known.

## Main definitions

* `ReferenceData.Complete`: whatever a validation may rely on can be reported
* `ReferenceData.Kept`: what deals may have been validated with is still there
* `DealRecord.Reportable`: the reference data of a valid deal is there

## Main results

* `reportable_run`: the reference data of all valid deals is there, in every run that keeps it
* `export_run`: how a report ends after such a run
-/

namespace FxDealManager

open DecimalArithmetic Transactional

namespace ReferenceData

/-- Active counterparties have a name and a BIC, and the number of an active account stands for this
account. -/
structure Complete (nsi : ReferenceData) : Prop where
  counterparty : ∀ id c, nsi.counterparty? id = some c → c.isActive = true →
    c.id.val ≠ "" ∧ c.name.val ≠ "" ∧ ∃ bic ∈ c.bic, bic.val ≠ ""
  account : ∀ account ∈ nsi.nostroAccounts, account.isActive = true →
    account.accountNumber.val ≠ "" ∧ ¬ nsi.Superseded account

/-- There is an active account with the number. -/
def HasAccount (nsi : ReferenceData) (number : String) : Prop :=
  ∃ account ∈ nsi.nostroAccounts, account.isActive = true ∧ account.accountNumber.val = number

/-- Active counterparties stay active, known currencies known, and the numbers of active accounts
those of active accounts. -/
structure Kept (nsi nsi' : ReferenceData) : Prop where
  counterparty : ∀ id, nsi.counterpartyExists id = true → nsi'.counterpartyExists id = true
  currency : ∀ code, (nsi.currency? code).isSome → (nsi'.currency? code).isSome
  account : ∀ number, nsi.HasAccount number → nsi'.HasAccount number

end ReferenceData

/-- The turn leaves the reference data complete, and keeps what is there. -/
def KeepsReferenceData (t : ServiceTurn) : Prop :=
  ∀ nsi, t.input = .referenceData nsi → nsi.Complete ∧ t.before.nsi.Kept nsi

/-- The reference data that the record refers to is there. -/
structure DealRecord.Backed (r : DealRecord) (nsi : ReferenceData) : Prop where
  counterparty : nsi.counterpartyExists r.row.counterpartyId.val = true
  buyCurrency : (nsi.currency? r.row.buyCurrency.val).isSome
  sellCurrency : (nsi.currency? r.row.sellCurrency.val).isSome
  accounts : ∀ p ∈ r.payments, ∃ code ∈ p.accountCode, nsi.HasAccount code.val

/-- The reference data of the record is there if the deal is valid. -/
def DealRecord.Reportable (r : DealRecord) (nsi : ReferenceData) : Prop :=
  r.row.validationStatus = .valid → r.Backed nsi

/-! ## Valid deals -/

section Records

variable {nsi nsi' : ReferenceData} {id : UUID} {r r' : DealRecord}

theorem DealRecord.Backed.kept (h : r.Backed nsi) (hnsi : nsi.Kept nsi') : r.Backed nsi' where
  counterparty := hnsi.counterparty _ h.counterparty
  buyCurrency := hnsi.currency _ h.buyCurrency
  sellCurrency := hnsi.currency _ h.sellCurrency
  accounts := fun p hp => (h.accounts p hp).imp fun _ hcode => ⟨hcode.1, hnsi.account _ hcode.2⟩

/-- What the validation has checked. -/
theorem known_of_validate {deal : FXDeal} {counterparty : Option Counterparty}
    {currencies : String → Option Currency} (h : validate deal counterparty currencies = []) :
    counterparty.any (·.isActive) = true ∧ (currencies deal.buyCurrency).isSome ∧
      (currencies deal.sellCurrency).isSome := by
  simp only [validate, List.append_eq_nil_iff] at h
  obtain ⟨⟨⟨⟨-, hbuy⟩, hsell⟩, hcounterparty⟩, -⟩ := h
  refine ⟨?_, ?_, ?_⟩
  · cases counterparty with
    | none => simp at hcounterparty
    | some c => simpa using hcounterparty
  · cases hcurrency : currencies deal.buyCurrency with
    | none => simp [hcurrency] at hbuy
    | some _ => rfl
  · cases hcurrency : currencies deal.sellCurrency with
    | none => simp [hcurrency] at hsell
    | some _ => rfl

/-- What is said of the partners of all members of one list holds of the members of the other. -/
theorem forall_mem_of_forall₂ {α β : Type} {R : α → β → Prop} {P : β → Prop} {as : List α}
    {bs : List β} (hP : ∀ a ∈ as, ∀ b, R a b → P b) (h : List.Forall₂ R as bs) :
    ∀ b ∈ bs, P b := by
  induction h with
  | nil => exact List.forall_mem_nil P
  | cons hab _ ih =>
    rw [List.forall_mem_cons] at hP ⊢
    exact ⟨hP.1 _ hab, ih hP.2⟩

/-- The account that a payment is assigned is there. -/
theorem hasAccount_of_assigned {payments : List CalculatedPayment} {a : CalculatedPayment × String}
    (h : a ∈ (assignNostro nsi.nostroByCurrency payments).1) : nsi.HasAccount a.2 := by
  obtain ⟨-, nostro, hnostro, hcode⟩ := mem_assignNostro.mp h
  obtain ⟨hmem, hactive⟩ := List.mem_filter.mp (List.mem_of_find?_eq_some hnostro)
  exact ⟨nostro, hmem, hactive, hcode.symm⟩

/-- The reference data of a deal that passes its validation is there. -/
theorem backed_of_validation {valueDate : Date} {assigned : List (CalculatedPayment × String)}
    (hvalid : Validation nsi (FXDeal.ofRecord nsi id r) valueDate assigned)
    (hbooks : List.Forall₂ PaymentRow.Books assigned r'.payments)
    (hcounterparty : r'.row.counterpartyId = r.row.counterpartyId)
    (hbuy : r'.row.buyCurrency = r.row.buyCurrency)
    (hsell : r'.row.sellCurrency = r.row.sellCurrency) : r'.Backed nsi := by
  obtain ⟨hactive, hbuyKnown, hsellKnown⟩ := known_of_validate hvalid.issues
  refine ⟨?_, ?_, ?_, ?_⟩
  · rw [hcounterparty]
    exact hactive
  · rw [hbuy]
    exact hbuyKnown
  · rw [hsell]
    exact hsellKnown
  · obtain ⟨calculated, -, hassign⟩ := hvalid.payments
    have hassigned : (assignNostro nsi.nostroByCurrency calculated).1 = assigned :=
      congrArg Prod.fst hassign
    have hbacked : ∀ a ∈ assigned, ∀ p, PaymentRow.Books a p →
        ∃ code ∈ p.accountCode, nsi.HasAccount code.val := by
      rintro a ha p ⟨payment, hstores⟩
      rw [← hassigned] at ha
      obtain ⟨code, hcode, hval⟩ := Option.map_eq_some_iff.mp hstores.accountCode
      exact ⟨code, hcode, hval ▸ hasAccount_of_assigned ha⟩
    exact forall_mem_of_forall₂ hbacked hbooks

/-- A record that has not become valid is reportable as before. -/
theorem DealRecord.Reportable.congr (h : r.Reportable nsi) (hpayments : r'.payments = r.payments)
    (hcounterparty : r'.row.counterpartyId = r.row.counterpartyId)
    (hbuy : r'.row.buyCurrency = r.row.buyCurrency)
    (hsell : r'.row.sellCurrency = r.row.sellCurrency)
    (hstatus : r'.row.validationStatus = r.row.validationStatus) : r'.Reportable nsi := by
  intro hvalid
  obtain ⟨hactive, hbuyKnown, hsellKnown, haccounts⟩ := h (hstatus ▸ hvalid)
  exact ⟨hcounterparty ▸ hactive, hbuy ▸ hbuyKnown, hsell ▸ hsellKnown, hpayments ▸ haccounts⟩

end Records

/-! ## Runs -/

section Runs

/-- The reference data is complete, and that of all valid deals is there. -/
structure AllReportable (db : Database) : Prop where
  complete : db.nsi.Complete
  reportable : ∀ id r, db.deals.lookup id = some r → r.Reportable db.nsi

theorem step_nsi (db : Database) (env : Env) (user : UserClaims) (op : Operation) :
    (step db (.request env user op)).2.nsi = db.nsi := by
  rcases execute_cases env user op db with
    ⟨-, hdb⟩ | ⟨id, result, log, sends, after, -, -, hreplay, houtcome⟩
  · simp only [step, hdb]
  · simp only [step, houtcome]
    exact replay_nsi hreplay

/-- A turn that keeps the reference data leaves all valid deals reportable. -/
theorem allReportable_step {db : Database} {input : Input}
    (hkept : KeepsReferenceData (turn step db input)) (h : AllReportable db) :
    AllReportable (step db input).2 := by
  cases input with
  | referenceData nsi =>
    obtain ⟨hcomplete, hnsi⟩ := hkept nsi rfl
    exact ⟨hcomplete, fun id r hr hvalid => (h.reportable id r hr hvalid).kept hnsi⟩
  | request env user op =>
    refine ⟨(step_nsi db env user op).symm ▸ h.complete, ?_⟩
    rw [step_nsi]
    refine forall_records_step ?_ ?_ h.reportable
    · intro env user payload id row _ hrow hvalid
      rw [(ofDeal_eq_ok hrow).validationStatus] at hvalid
      cases hvalid
    · intro env' user' op' id result r r' added _ _ hr hchange
      have hbefore := h.reportable id r hr
      cases hchange with
      | edited _ _ hch _ =>
        intro hvalid
        simp [hch.validationStatus] at hvalid
      | invalidated _ _ _ _ =>
        intro hvalid
        simp at hvalid
      | validated _ hvalid hrows hfresh _ =>
        intro _
        refine backed_of_validation hvalid ?_ (by simp) (by simp) (by simp)
        rw [filter_replaced hfresh]
        exact hrows
      | moved _ _ _ => exact hbefore.congr rfl rfl rfl rfl rfl
      | decided _ _ => exact hbefore.congr rfl rfl rfl rfl rfl

/-- **The reference data of all valid deals** is there, in every run that keeps it. -/
theorem reportable_run {nsi : ReferenceData} {history : List ServiceTurn} {db : Database}
    (hnsi : nsi.Complete) (h : Run step (Database.initial nsi) history db)
    (hkept : ∀ t ∈ history, KeepsReferenceData t) : AllReportable db := by
  refine Run.invariant_of (P := fun _ db => AllReportable db) ⟨hnsi, ?_⟩
    (fun _ db input hturn hdb => allReportable_step hturn hdb) h hkept
  intro id r hr
  simp at hr

end Runs

/-! ## Reports -/

section Reports

variable {nsi : ReferenceData}

/-- Nothing is missing for the export of a deal whose reference data is there. -/
theorem complete_of_backed {id : UUID} {r : DealRecord} (hnsi : nsi.Complete) (h : r.Backed nsi) :
    nsi.forReport.Complete (FXDeal.ofRecord nsi id r) := by
  obtain ⟨hcounterparty, hbuy, hsell, haccounts⟩ := h
  refine ⟨?_, hbuy, hsell, ?_⟩
  · unfold ReferenceData.counterpartyExists at hcounterparty
    obtain ⟨c, hc, hactive⟩ := (Option.any_eq_true _ _).mp hcounterparty
    exact ⟨c, hc, hnsi.counterparty _ c hc hactive⟩
  · intro payment hpayment
    obtain ⟨p, hp, rfl⟩ := List.mem_map.mp hpayment
    obtain ⟨code, hcode, account, hmem, hactive, hnumber⟩ := haccounts p hp
    obtain ⟨hne, hlast⟩ := hnsi.account account hmem hactive
    refine ⟨code.val, Option.mem_map_of_mem _ hcode, hnumber ▸ hne, account, ?_, hactive⟩
    rw [← hnumber]
    exact (resolveNostro_number hmem).mpr hlast

/-- An item that is missing is missing for want of a currency of its deal. -/
theorem unknown_of_serializeDeal {report : ReportNsi} {deal : FXDeal} {err : ReportError}
    (h : serializeDeal report deal = .error err) :
    ∃ key, err = .keyError key ∧ (key = deal.buyCurrency ∨ key = deal.sellCurrency) ∧
      report.currencies key = none := by
  unfold serializeDeal currencyOfCode at h
  cases hbuy : report.currencies deal.buyCurrency with
  | none =>
    rw [hbuy] at h
    cases h
    exact ⟨_, rfl, .inl rfl, hbuy⟩
  | some buy =>
    cases hsell : report.currencies deal.sellCurrency with
    | none =>
      rw [hbuy, hsell] at h
      cases h
      exact ⟨_, rfl, .inr rfl, hsell⟩
    | some sell =>
      rw [hbuy, hsell] at h
      cases h

/-- A list that is not mapped has a member that is not. -/
theorem exists_of_mapM_error {ε α β : Type} {f : α → Except ε β} {as : List α} {err : ε}
    (h : as.mapM f = .error err) : ∃ a ∈ as, f a = .error err := by
  induction as with
  | nil => cases h
  | cons a as ih =>
    rw [List.mapM_cons] at h
    cases ha : f a with
    | error err' =>
      rw [ha] at h
      cases h
      exact ⟨a, List.mem_cons_self, ha⟩
    | ok b =>
      cases has : as.mapM f with
      | error err' =>
        rw [ha, has] at h
        cases h
        obtain ⟨a', ha', herr⟩ := ih has
        exact ⟨a', List.mem_cons_of_mem a ha', herr⟩
      | ok bs =>
        rw [ha, has] at h
        cases h

/-- How a report ends that complains about nothing. -/
inductive Exported (report : ReportNsi) (deals : List FXDeal) :
    Except ServiceError (Except ReportError (List RegulatoryItem)) → Prop
  | items {items : List RegulatoryItem} (hitems : List.Forall₂ (fun deal item =>
      item.dealId = UUID.text deal.id ∧ item.validationStatus = deal.validationStatus.value ∧
        (deal.validationStatus = .valid → report.Carries deal item)) deals items) :
      Exported report deals (.ok (.ok items))
  | keyError {deal : FXDeal} {key : String} (hdeal : deal ∈ deals)
      (hstatus : deal.validationStatus ≠ .valid)
      (hkey : key = deal.buyCurrency ∨ key = deal.sellCurrency)
      (hunknown : report.currencies key = none) :
      Exported report deals (.ok (.error (.keyError key)))

/-- The export of deals for which nothing is missing. -/
theorem exported_mapM {report : ReportNsi} {deals : List FXDeal}
    (hcomplete : ∀ deal ∈ deals, deal.validationStatus = .valid → report.Complete deal) :
    Exported report deals (.ok (deals.mapM (serializeDeal report))) := by
  cases hitems : deals.mapM (serializeDeal report) with
  | ok items =>
    refine .items ?_
    have hboth := (List.forall₂_and_left deals items).mpr ⟨hcomplete, mapM_eq_ok.mp hitems⟩
    refine hboth.imp fun deal item ⟨hvalid, hitem⟩ => ?_
    refine ⟨dealId_of_serializeDeal hitem, validationStatus_of_serializeDeal hitem, ?_⟩
    intro hstatus
    exact carries_serializeDeal (hvalid hstatus) hitem
  | error err =>
    obtain ⟨deal, hdeal, herr⟩ := exists_of_mapM_error hitems
    obtain ⟨key, rfl, hkey, hunknown⟩ := unknown_of_serializeDeal herr
    refine .keyError hdeal (fun hstatus => ?_) hkey hunknown
    obtain ⟨item, hitem⟩ := exists_serializeDeal_iff.mpr (hcomplete deal hdeal hstatus).known
    rw [hitem] at herr
    cases herr

/-- **How a report ends after a run that keeps complete reference data**: nobody is complained
about and nothing is recorded. There is an item for each deal, and those of valid deals carry their
reference data; or a deal that is not valid names a currency that is not known. -/
theorem export_run {history : List ServiceTurn} {db : Database} (hnsi : nsi.Complete)
    (h : Run step (Database.initial nsi) history db)
    (hkept : ∀ t ∈ history, KeepsReferenceData t) {env : Env} (hcalm : ∀ n, rejects env n = false)
    (filter : ReportFilter) (createdBy : String) :
    Exported db.nsi.forReport (listDealsForRegulatoryReport filter db)
        ((generate filter createdBy).run env db).1 ∧
      ((generate filter createdBy).run env db).2.committed = db := by
  obtain ⟨hdb, hreportable⟩ := reportable_run hnsi h hkept
  have hcomplete : ∀ deal ∈ listDealsForRegulatoryReport filter db,
      deal.validationStatus = .valid → db.nsi.forReport.Complete deal := by
    intro deal hdeal hvalid
    simp only [listDealsForRegulatoryReport, List.mem_insertionSort, List.mem_map,
      List.mem_filter] at hdeal
    obtain ⟨⟨id, r⟩, ⟨hr, -⟩, rfl⟩ := hdeal
    exact complete_of_backed hdb (hreportable id r (AList.mem_lookup_iff.mpr hr) hvalid)
  have hnone := validateNsi_eq_nil_iff.mpr hcomplete
  suffices hensures : (generate filter createdBy).EnsuresFrom env (Progress.start db) 0
      fun result c => Exported db.nsi.forReport (listDealsForRegulatoryReport filter db) result ∧
        c.committed = db from hensures.run
  refine generate_from (fun _ _ => .of_calm hcalm) (fun _ => ⟨exported_mapM hcomplete, rfl⟩)
    (fun herrors => absurd hnone herrors) (fun herrors => absurd hnone herrors)
    fun herrors => absurd hnone herrors

end Reports

namespace Desk

theorem complete_completeNsi : completeNsi.Complete := by
  constructor
  · intro id c hc _
    obtain rfl := List.mem_singleton.mp (List.mem_of_find?_eq_some hc)
    exact ⟨by decide, by decide, _, rfl, by decide⟩
  · intro account hmem _
    rw [← ReferenceData.nostroByAccountNumber_self_iff hmem]
    revert account
    decide

end Desk

/-- The report of the executed deal of the desk. -/
theorem export_run_desk :
    Exported Desk.completed.nsi.forReport
        (listDealsForRegulatoryReport Desk.allDeals Desk.completed)
        ((generate Desk.allDeals "auditor@bank").run (Desk.env 5) Desk.completed).1 ∧
      ((generate Desk.allDeals "auditor@bank").run (Desk.env 5) Desk.completed).2.committed =
        Desk.completed := by
  have hrun : Run step (Database.initial Desk.completeNsi) _ Desk.completed :=
    run_serveAll step (Database.initial Desk.completeNsi) Desk.execution
  refine export_run Desk.complete_completeNsi hrun ?_ (fun _ => rfl) Desk.allDeals "auditor@bank"
  intro t ht nsi hinput
  have hmem : t.input ∈ (history step (Database.initial Desk.completeNsi) Desk.execution).map
      Turn.input := List.mem_map_of_mem ht
  rw [history_inputs, hinput] at hmem
  simp [Desk.execution, Desk.submission, Desk.validation, Desk.creation] at hmem

end FxDealManager
